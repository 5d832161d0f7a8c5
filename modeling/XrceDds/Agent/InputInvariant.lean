import XrceDds.Agent.InputStream
import XrceDds.Lib.Transition

/-!
# The representation invariant of the input reliable stream

A run of the stream is followed by `InputHistory`: every number is given the position it
stands for, counted from the position of `lastHandled`, and a message carries the position
under which it was accepted.

A heartbeat moves `lastHandled` without a look at the messages that are held.  What it
skips stays in the map, and is found again when the numbers come round
(`heartbeat_leaves_message`).  As long as no heartbeat skips a message that is held or
announces more than half a turn (`HeartbeatKeeps`), every run keeps the invariant
(`inputRepresentation_of_run`).
-/

namespace XrceDds

/-- The later of two numbers. -/
def SeqNum.laterOf (a b : SeqNum) : SeqNum := if SeqNum.Lt a b then b else a

namespace ReliableInputStream

variable {α : Type}

/-! ## Numbers and positions -/

/-- A number is some steps above the number of a position. -/
lemma exists_seqOf (P : ℕ) (x : SeqNum) :
    ∃ d < 65536, x = seqOf (P + d) ∧ seqSteps (seqOf P) x = d :=
  ⟨seqSteps (seqOf P) x, seqSteps_lt _ _, (seqOf_add_seqSteps P x).symm, rfl⟩

/-- Steps between two numbers, counted from a number below both. -/
lemma seqSteps_seqOf_add (P : ℕ) {b k : ℕ} (hb : b ≤ k) (hk : k < 65536) :
    seqSteps (seqOf (P + b)) (seqOf (P + k)) = k - b := by
  obtain ⟨c, rfl⟩ := Nat.exists_eq_add_of_le hb
  rw [← Nat.add_assoc, seqSteps_seqOf _ (by omega), Nat.add_sub_cancel_left]

/-- Steps from a number up to one below it lead around the circle. -/
lemma seqSteps_seqOf_sub (P : ℕ) {b k : ℕ} (hb : k < b) (hk : b < 65536) :
    seqSteps (seqOf (P + b)) (seqOf (P + k)) = 65536 - (b - k) := by
  have hturn : seqOf (P + k) = seqOf (P + b + (65536 - (b - k))) :=
    Fin.ext (by simp only [seqOf_val]; omega)
  rw [hturn]
  exact seqSteps_seqOf _ (by omega)

/-- The numbers of the window are the sixteen behind `lastHandled`. -/
lemma inWindow_iff (stream : ReliableInputStream α) (seqNum : SeqNum) :
    stream.InWindow seqNum ↔ 0 < seqSteps stream.lastHandled seqNum ∧
      seqSteps stream.lastHandled seqNum ≤ reliableStreamDepth := by
  obtain ⟨P, hP⟩ : ∃ P, stream.lastHandled = seqOf P := ⟨_, (seqOf_self _).symm⟩
  obtain ⟨d, hd, rfl, hsteps⟩ := exists_seqOf P seqNum
  have hlast : SeqNum.add (seqOf P) (seqOf reliableStreamDepth) = seqOf (P + 16) :=
    SeqNum.add_seqOf P (by decide)
  have hdepth : reliableStreamDepth = 16 := rfl
  unfold InWindow
  rw [hP, hsteps, hlast, hdepth]
  unfold SeqNum.Gt SeqNum.Le SeqNum.Gt
  rw [SeqNum.lt_iff_seqSteps, SeqNum.lt_iff_seqSteps, hsteps]
  rcases Nat.lt_or_ge d 16 with hlt | hge
  · rw [seqSteps_seqOf_sub P hlt (by decide)]
    omega
  · rw [seqSteps_seqOf_add P hge hd]
    omega

/-- Within the window, a number is beyond what is announced when it is more steps above
`lastHandled`. -/
lemma gt_lastAnnounced_iff {stream : ReliableInputStream α} {seqNum : SeqNum}
    (hahead : seqSteps stream.lastHandled stream.lastAnnounced ≤ 32768)
    (hwindow : seqSteps stream.lastHandled seqNum ≤ 16) :
    SeqNum.Gt seqNum stream.lastAnnounced ↔
      seqSteps stream.lastHandled stream.lastAnnounced < seqSteps stream.lastHandled seqNum := by
  obtain ⟨P, hP⟩ : ∃ P, stream.lastHandled = seqOf P := ⟨_, (seqOf_self _).symm⟩
  obtain ⟨l, hl, hlast, hlsteps⟩ := exists_seqOf P stream.lastAnnounced
  obtain ⟨d, hd, rfl, hsteps⟩ := exists_seqOf P seqNum
  rw [hP, hlsteps] at hahead
  rw [hP, hsteps] at hwindow
  unfold SeqNum.Gt
  rw [hP, hlsteps, hsteps, hlast, SeqNum.lt_iff_seqSteps]
  rcases Nat.lt_or_ge d l with hlt | hge
  · rw [seqSteps_seqOf_sub P hlt hl]
    omega
  · rw [seqSteps_seqOf_add P hge hd]
    omega

/-- Beside `lastHandled + 1`, the heartbeat compares `first_unacked` as its predecessor compares
with `lastHandled`. -/
lemma lastHandled_updateFromHeartbeat (stream : ReliableInputStream α)
    (firstUnacked lastUnacked : SeqNum) :
    (stream.updateFromHeartbeat firstUnacked lastUnacked).lastHandled =
      SeqNum.laterOf stream.lastHandled (SeqNum.subInt firstUnacked 1) := by
  obtain ⟨P, hP⟩ : ∃ P, stream.lastHandled = seqOf P := ⟨_, (seqOf_self _).symm⟩
  obtain ⟨d, hd, rfl, hsteps⟩ := exists_seqOf (P + 1) firstUnacked
  have hpred : SeqNum.subInt (seqOf (P + 1 + d)) 1 = seqOf (P + d) := by
    rw [Nat.add_right_comm]
    exact SeqNum.subInt_seqOf_succ _
  have hcond : SeqNum.Lt (SeqNum.addInt (seqOf P) 1) (seqOf (P + 1 + d)) ↔
      SeqNum.Lt (seqOf P) (seqOf (P + d)) := by
    rw [SeqNum.addInt_seqOf P (d := 1) (by decide), SeqNum.lt_iff_seqSteps, SeqNum.lt_iff_seqSteps,
      hsteps, seqSteps_seqOf P hd]
  unfold updateFromHeartbeat SeqNum.laterOf
  dsimp only
  rw [hP, hpred]
  simp only [hcond]

/-! ## Runs -/

/-- A call of one of the operations of the stream. -/
inductive Call (α : Type) where
  | pushMessage (seqNum : SeqNum) (message : α)
  | emplaceMessage (seqNum : SeqNum) (message : α)
  | popMessage
  | updateFromHeartbeat (firstUnacked lastUnacked : SeqNum)
  | fillAcknack

/-- A stream whose messages carry the position under which they were accepted, with the
position of `lastHandled`, what was accepted, what was popped at which position, and the
positions `(a, b]` that heartbeats skipped. -/
structure InputHistory (α : Type) where
  stream : ReliableInputStream (ℕ × α)
  position : ℕ
  accepted : List (ℕ × α)
  popped : List (ℕ × (ℕ × α))
  skipped : List (ℕ × ℕ)

namespace InputHistory

/-- The history of a new stream. -/
def start : InputHistory α := ⟨.new, 65535, [], [], []⟩

/-- The position that a number stands for. -/
def positionOf (h : InputHistory α) (seqNum : SeqNum) : ℕ :=
  h.position + seqSteps h.stream.lastHandled seqNum

/-- What follows a call of `push_message` with the given result. -/
def afterPush (h : InputHistory α) (message : ℕ × α)
    (result : ReliableInputStream (ℕ × α) × Bool) : InputHistory α :=
  { h with
    stream := result.1
    accepted := if result.2 then h.accepted ++ [message] else h.accepted }

/-- What a call does. -/
def step (h : InputHistory α) : Call α → InputHistory α
  | .pushMessage seqNum message =>
    h.afterPush (h.positionOf seqNum, message)
      (h.stream.pushMessage seqNum (h.positionOf seqNum, message))
  | .emplaceMessage seqNum message =>
    h.afterPush (h.positionOf seqNum, message)
      (h.stream.emplaceMessage seqNum (h.positionOf seqNum, message))
  | .popMessage =>
    match h.stream.popMessage with
    | (_, none) => h
    | (stream, some message) =>
      { h with
        stream := stream
        position := h.position + 1
        popped := h.popped ++ [(h.position + 1, message)] }
  | .updateFromHeartbeat firstUnacked lastUnacked =>
    let stream := h.stream.updateFromHeartbeat firstUnacked lastUnacked
    { h with
      stream := stream
      position := h.positionOf stream.lastHandled
      skipped := h.skipped ++ [(h.position, h.positionOf stream.lastHandled)] }
  | .fillAcknack => h

end InputHistory

/-- The heartbeat skips no message that is held, and what is announced is then at most half a
turn ahead of what is handled. -/
structure HeartbeatKeeps (stream : ReliableInputStream α) (firstUnacked lastUnacked : SeqNum) :
    Prop where
  held : ∀ key, stream.messages key ≠ none →
    seqSteps stream.lastHandled
        (SeqNum.laterOf stream.lastHandled (SeqNum.subInt firstUnacked 1)) <
      seqSteps stream.lastHandled key
  ahead : seqSteps (SeqNum.laterOf stream.lastHandled (SeqNum.subInt firstUnacked 1))
    (SeqNum.laterOf stream.lastAnnounced lastUnacked) ≤ 32768

/-- The calls for which the invariant is kept. -/
def InputHistory.Admitted (h : InputHistory α) : Call α → Prop
  | .updateFromHeartbeat firstUnacked lastUnacked =>
    h.stream.HeartbeatKeeps firstUnacked lastUnacked
  | _ => True

/-- The representation invariant: the keys lie in the window; a push is accepted when the
number is in the window and not held, and the message is then the one that is held; every
message is popped at the position under which it was accepted, which happens once and at no
position that a heartbeat skipped. -/
structure InputRepresents (h : InputHistory α) : Prop where
  window : ∀ key, h.stream.messages key ≠ none →
    0 < seqSteps h.stream.lastHandled key ∧
      seqSteps h.stream.lastHandled key ≤ reliableStreamDepth
  push : ∀ seqNum message, (h.stream.pushMessage seqNum message).2 = true ↔
    (0 < seqSteps h.stream.lastHandled seqNum ∧
      seqSteps h.stream.lastHandled seqNum ≤ reliableStreamDepth) ∧
    h.stream.messages seqNum = none
  stored : ∀ seqNum message, (h.stream.pushMessage seqNum message).2 = true →
    (h.stream.pushMessage seqNum message).1.messages seqNum = some message
  accepted : (h.accepted.map Prod.fst).Nodup
  popped : ∀ x ∈ h.popped, x.1 = x.2.1 ∧ x.2 ∈ h.accepted
  ordered : (h.popped.map Prod.fst).Pairwise (· < ·)
  skipped : ∀ r ∈ h.skipped, ∀ x ∈ h.popped, ¬ (r.1 < x.1 ∧ x.1 ≤ r.2)

/-! ## The invariant behind it -/

/-- The stream holds, at the right places, the accepted messages that are still to come. -/
structure InputHistory.Tracks (h : InputHistory α) : Prop where
  lastHandled_eq : h.stream.lastHandled = seqOf h.position
  ahead : seqSteps (seqOf h.position) h.stream.lastAnnounced ≤ 32768
  held : ∀ key message, h.stream.messages key = some message →
    0 < seqSteps (seqOf h.position) key ∧ seqSteps (seqOf h.position) key ≤ 16 ∧
      seqSteps (seqOf h.position) key ≤ seqSteps (seqOf h.position) h.stream.lastAnnounced ∧
      message.1 = h.position + seqSteps (seqOf h.position) key ∧ message ∈ h.accepted
  waiting : ∀ message ∈ h.accepted, h.position < message.1 →
    h.stream.messages (seqOf message.1) = some message
  accepted : (h.accepted.map Prod.fst).Nodup
  popped : ∀ x ∈ h.popped, x.1 = x.2.1 ∧ x.2 ∈ h.accepted ∧ x.1 ≤ h.position
  ordered : (h.popped.map Prod.fst).Pairwise (· < ·)
  skipped : ∀ r ∈ h.skipped, r.2 ≤ h.position ∧ ∀ x ∈ h.popped, ¬ (r.1 < x.1 ∧ x.1 ≤ r.2)

/-- What `push_message` does: a number of the window that is not held is accepted. -/
lemma pushMessage_cases (stream : ReliableInputStream α) (seqNum : SeqNum) (message : α)
    (hahead : seqSteps stream.lastHandled stream.lastAnnounced ≤ 32768)
    (hheld : ∀ key, stream.messages key ≠ none →
      seqSteps stream.lastHandled key ≤ seqSteps stream.lastHandled stream.lastAnnounced) :
    (stream.InWindow seqNum ∧ stream.messages seqNum = none ∧
      ∃ lastAnnounced, stream.pushMessage seqNum message =
          ({ stream with
            lastAnnounced := lastAnnounced
            messages := Function.update stream.messages seqNum (some message) }, true) ∧
        seqSteps stream.lastHandled lastAnnounced =
          max (seqSteps stream.lastHandled stream.lastAnnounced)
            (seqSteps stream.lastHandled seqNum)) ∨
    (¬ (stream.InWindow seqNum ∧ stream.messages seqNum = none) ∧
      stream.pushMessage seqNum message = (stream, false)) := by
  unfold pushMessage
  by_cases hwindow : stream.InWindow seqNum
  · have hsteps : seqSteps stream.lastHandled seqNum ≤ 16 :=
      ((inWindow_iff stream seqNum).mp hwindow).2
    have hgt := gt_lastAnnounced_iff hahead hsteps
    rw [if_pos hwindow]
    split
    · next hnew =>
      have hlt := hgt.mp hnew
      have hnone : stream.messages seqNum = none := by
        by_contra hsome
        exact Nat.not_le_of_lt hlt (hheld seqNum hsome)
      refine .inl ⟨hwindow, hnone, seqNum, ?_, (max_eq_right (Nat.le_of_lt hlt)).symm⟩
      unfold emplace
      dsimp only
      rw [hnone]
    · next hold =>
      have hle : seqSteps stream.lastHandled seqNum ≤
          seqSteps stream.lastHandled stream.lastAnnounced :=
        Nat.le_of_not_lt fun hlt => hold (hgt.mpr hlt)
      cases hmessages : stream.messages seqNum with
      | none =>
        refine .inl ⟨hwindow, rfl, stream.lastAnnounced, ?_, (max_eq_left hle).symm⟩
        dsimp only
        unfold emplace
        rw [hmessages]
      | some other => exact .inr ⟨fun h => absurd h.2 (by simp), rfl⟩
  · rw [if_neg hwindow]
    exact .inr ⟨fun h => hwindow h.1, rfl⟩

namespace InputHistory.Tracks

variable {h : InputHistory α}

/-- The invariant gives what `push_message` is about. -/
lemma pushMessage_cases (htracks : h.Tracks) (seqNum : SeqNum) (message : ℕ × α) :
    (h.stream.InWindow seqNum ∧ h.stream.messages seqNum = none ∧
      ∃ lastAnnounced, h.stream.pushMessage seqNum message =
          ({ h.stream with
            lastAnnounced := lastAnnounced
            messages := Function.update h.stream.messages seqNum (some message) }, true) ∧
        seqSteps h.stream.lastHandled lastAnnounced =
          max (seqSteps h.stream.lastHandled h.stream.lastAnnounced)
            (seqSteps h.stream.lastHandled seqNum)) ∨
    (¬ (h.stream.InWindow seqNum ∧ h.stream.messages seqNum = none) ∧
      h.stream.pushMessage seqNum message = (h.stream, false)) := by
  have hlast := htracks.lastHandled_eq
  refine ReliableInputStream.pushMessage_cases _ _ _ (by rw [hlast]; exact htracks.ahead) ?_
  intro key hkey
  obtain ⟨other, hother⟩ := Option.ne_none_iff_exists'.mp hkey
  rw [hlast]
  exact (htracks.held key other hother).2.2.1

/-- The invariant contains the representation invariant. -/
lemma represents (htracks : h.Tracks) : InputRepresents h := by
  have hlast := htracks.lastHandled_eq
  refine ⟨?_, ?_, ?_, htracks.accepted, fun x hx => ⟨(htracks.popped x hx).1,
    (htracks.popped x hx).2.1⟩, htracks.ordered, fun r hr => (htracks.skipped r hr).2⟩
  · intro key hkey
    obtain ⟨message, hmessage⟩ := Option.ne_none_iff_exists'.mp hkey
    have hheld := htracks.held key message hmessage
    rw [hlast]
    exact ⟨hheld.1, hheld.2.1⟩
  · intro seqNum message
    rw [← inWindow_iff]
    rcases htracks.pushMessage_cases seqNum message with ⟨hwindow, hnone, _, heq, -⟩ | ⟨hnot, heq⟩
    · rw [heq]
      exact ⟨fun _ => ⟨hwindow, hnone⟩, fun _ => rfl⟩
    · rw [heq]
      exact ⟨fun hfalse => absurd hfalse (by simp), fun hboth => absurd hboth hnot⟩
  · intro seqNum message htrue
    rcases htracks.pushMessage_cases seqNum message with ⟨_, _, _, heq, -⟩ | ⟨_, heq⟩
    · rw [heq]
      exact Function.update_self _ _ _
    · rw [heq] at htrue
      exact absurd htrue (by simp)

/-- A new stream keeps the invariant. -/
lemma start : (InputHistory.start : InputHistory α).Tracks where
  lastHandled_eq := rfl
  ahead := show seqSteps (seqOf 65535) (seqOf 65535) ≤ 32768 by decide
  held := fun _ _ hsome => absurd hsome (by simp [InputHistory.start, new])
  waiting := fun _ hmem => absurd hmem (by simp [InputHistory.start])
  accepted := by simp [InputHistory.start]
  popped := fun _ hmem => absurd hmem (by simp [InputHistory.start])
  ordered := by simp [InputHistory.start]
  skipped := fun _ hmem => absurd hmem (by simp [InputHistory.start])

/-- A push keeps the invariant. -/
lemma pushMessage (htracks : h.Tracks) (seqNum : SeqNum) (message : α) :
    (h.step (.pushMessage seqNum message)).Tracks := by
  have hlast := htracks.lastHandled_eq
  unfold InputHistory.step InputHistory.afterPush InputHistory.positionOf
  dsimp only
  rcases htracks.pushMessage_cases seqNum
    (h.position + seqSteps h.stream.lastHandled seqNum, message) with
    ⟨hwindow, hnone, lastAnnounced, heq, hmax⟩ | ⟨-, heq⟩
  · rw [heq]
    rw [inWindow_iff, hlast] at hwindow
    have hdepth : seqSteps (seqOf h.position) seqNum ≤ 16 := hwindow.2
    have hahead := htracks.ahead
    rw [hlast] at hmax
    obtain ⟨d, hd⟩ : ∃ d, d = seqSteps (seqOf h.position) seqNum := ⟨_, rfl⟩
    have hseq : seqNum = seqOf (h.position + d) := by rw [hd, seqOf_add_seqSteps]
    rw [hlast, ← hd]
    rw [← hd] at hmax hdepth hwindow
    refine ⟨hlast, ?_, ?_, ?_, ?_, fun x hx => ?_, htracks.ordered, htracks.skipped⟩
    · dsimp only
      rw [hmax]
      omega
    · intro key other hother
      dsimp only at hother ⊢
      rw [if_pos rfl, hmax]
      by_cases hkey : key = seqNum
      · rw [hkey, Function.update_self, Option.some.injEq] at hother
        rw [hkey, ← hd, ← hother]
        exact ⟨hwindow.1, hdepth, le_max_right _ _, rfl, by simp⟩
      · rw [Function.update_of_ne hkey] at hother
        obtain ⟨hpos, hle, hann, heq', hmem⟩ := htracks.held key other hother
        exact ⟨hpos, hle, le_max_of_le_left hann, heq', List.mem_append_left _ hmem⟩
    · intro other hother hlt
      dsimp only at hother hlt ⊢
      rw [if_pos rfl, List.mem_append, List.mem_singleton] at hother
      rcases hother with hold | rfl
      · have hwaiting := htracks.waiting other hold hlt
        rw [Function.update_of_ne]
        · exact hwaiting
        · intro hkey
          rw [hkey, hnone] at hwaiting
          exact absurd hwaiting (by simp)
      · rw [hseq, Function.update_self]
    · -- the position was not accepted before: it would be held
      dsimp only
      rw [if_pos rfl, List.map_append, List.map_singleton, List.nodup_append]
      refine ⟨htracks.accepted, by simp, ?_⟩
      rintro p hp _ hq rfl
      rw [List.mem_singleton] at hq
      obtain ⟨other, hother, hfst⟩ := List.mem_map.mp hp
      have hwaiting := htracks.waiting other hother (by rw [hfst, hq]; omega)
      rw [hfst, hq, ← hseq, hnone] at hwaiting
      exact absurd hwaiting (by simp)
    · dsimp only
      rw [if_pos rfl]
      have hpopped := htracks.popped x hx
      exact ⟨hpopped.1, List.mem_append_left _ hpopped.2.1, hpopped.2.2⟩
  · rw [heq]
    exact htracks

/-- A pop keeps the invariant. -/
lemma popMessage (htracks : h.Tracks) : (h.step .popMessage).Tracks := by
  have hlast := htracks.lastHandled_eq
  have hnext : SeqNum.addInt h.stream.lastHandled 1 = seqOf (h.position + 1) := by
    rw [hlast]
    exact SeqNum.addInt_seqOf _ (by decide)
  unfold InputHistory.step ReliableInputStream.popMessage
  rw [hnext]
  cases hmessages : h.stream.messages (seqOf (h.position + 1)) with
  | none => exact htracks
  | some message =>
    have hone : seqSteps (seqOf h.position) (seqOf (h.position + 1)) = 1 :=
      seqSteps_seqOf _ (by decide)
    obtain ⟨-, -, hann, hfst, hmem⟩ := htracks.held _ _ hmessages
    rw [hone] at hann hfst
    have hahead := htracks.ahead
    obtain ⟨l, hl, hlastAnnounced, hlsteps⟩ := exists_seqOf h.position h.stream.lastAnnounced
    rw [hlsteps] at hann hahead
    have hlsteps' : seqSteps (seqOf (h.position + 1)) h.stream.lastAnnounced = l - 1 := by
      rw [hlastAnnounced]
      exact seqSteps_seqOf_add _ hann hl
    dsimp only
    refine ⟨rfl, ?_, ?_, ?_, htracks.accepted, ?_, ?_, ?_⟩
    · dsimp only
      rw [hlsteps']
      omega
    · intro key other hother
      dsimp only at hother ⊢
      by_cases hkey : key = seqOf (h.position + 1)
      · rw [hkey, Function.update_self] at hother
        exact absurd hother (by simp)
      · rw [Function.update_of_ne hkey] at hother
        obtain ⟨hpos, hle, hann', heq, hmem'⟩ := htracks.held key other hother
        obtain ⟨k, hk, rfl, hksteps⟩ := exists_seqOf h.position key
        rw [hksteps] at hpos hle hann' heq
        rw [hlsteps] at hann'
        have hne : k ≠ 1 := fun hk1 => hkey (by rw [hk1])
        rw [hlsteps', seqSteps_seqOf_add _ (show 1 ≤ k from hpos) hk]
        exact ⟨by omega, by omega, by omega, by omega, hmem'⟩
    · intro other hother hlt
      dsimp only at hlt ⊢
      have hwaiting := htracks.waiting other hother (by omega)
      rw [Function.update_of_ne]
      · exact hwaiting
      · intro hkey
        rw [hkey, hmessages, Option.some.injEq] at hwaiting
        rw [← hwaiting, hfst] at hlt
        exact Nat.lt_irrefl _ hlt
    · intro x hx
      dsimp only at hx ⊢
      rw [List.mem_append, List.mem_singleton] at hx
      rcases hx with hold | rfl
      · have := htracks.popped x hold
        exact ⟨this.1, this.2.1, Nat.le_succ_of_le this.2.2⟩
      · exact ⟨hfst.symm, hmem, le_rfl⟩
    · dsimp only
      rw [List.map_append, List.map_singleton, List.pairwise_append]
      refine ⟨htracks.ordered, by simp, ?_⟩
      intro p hp q hq
      rw [List.mem_singleton] at hq
      obtain ⟨x, hx, hfst'⟩ := List.mem_map.mp hp
      have := (htracks.popped x hx).2.2
      omega
    · intro r hr
      dsimp only
      obtain ⟨hle, hout⟩ := htracks.skipped r hr
      refine ⟨Nat.le_succ_of_le hle, fun x hx => ?_⟩
      rw [List.mem_append, List.mem_singleton] at hx
      rcases hx with hold | rfl
      · exact hout x hold
      · dsimp only
        omega

/-- A heartbeat that skips no message keeps the invariant. -/
lemma updateFromHeartbeat (htracks : h.Tracks) {firstUnacked lastUnacked : SeqNum}
    (hkeeps : h.stream.HeartbeatKeeps firstUnacked lastUnacked) :
    (h.step (.updateFromHeartbeat firstUnacked lastUnacked)).Tracks := by
  have hlast := htracks.lastHandled_eq
  have hahead := htracks.ahead
  obtain ⟨hskips, hkahead⟩ := hkeeps
  have hhandled := lastHandled_updateFromHeartbeat h.stream firstUnacked lastUnacked
  have hannounced : (h.stream.updateFromHeartbeat firstUnacked lastUnacked).lastAnnounced =
      SeqNum.laterOf h.stream.lastAnnounced lastUnacked := rfl
  have hmessages : (h.stream.updateFromHeartbeat firstUnacked lastUnacked).messages =
      h.stream.messages := rfl
  unfold InputHistory.step InputHistory.positionOf
  dsimp only
  generalize h.stream.updateFromHeartbeat firstUnacked lastUnacked = stream at *
  obtain ⟨b, hb, hbase, hbsteps⟩ := exists_seqOf h.position
    (SeqNum.laterOf h.stream.lastHandled (SeqNum.subInt firstUnacked 1))
  obtain ⟨l, hl, hlastAnnounced, hlsteps⟩ := exists_seqOf h.position h.stream.lastAnnounced
  have hlater : ∃ e, l + e < 65536 ∧
      SeqNum.laterOf h.stream.lastAnnounced lastUnacked = seqOf (h.position + (l + e)) := by
    rw [hlsteps] at hahead
    unfold SeqNum.laterOf
    split
    · next hlt =>
      rw [SeqNum.lt_iff_seqSteps] at hlt
      refine ⟨seqSteps h.stream.lastAnnounced lastUnacked, by omega, ?_⟩
      rw [hlastAnnounced, ← Nat.add_assoc, seqOf_add_seqSteps]
    · exact ⟨0, hl, hlastAnnounced⟩
  obtain ⟨e, he, hlater⟩ := hlater
  rw [hlast, hhandled, hbsteps]
  rw [hbase] at hkahead hhandled
  refine ⟨hhandled, ?_, ?_, ?_, htracks.accepted, ?_, htracks.ordered, ?_⟩
  · dsimp only
    rw [hannounced]
    exact hkahead
  · intro key message hmessage
    dsimp only at hmessage ⊢
    rw [hmessages] at hmessage
    obtain ⟨hpos, hle, hann, heq, hmem⟩ := htracks.held key message hmessage
    have hskip := hskips key (by rw [hmessage]; simp)
    obtain ⟨k, hk, rfl, hksteps⟩ := exists_seqOf h.position key
    rw [hksteps] at hpos hle hann heq
    rw [hbase, hlast, seqSteps_seqOf _ hb, hksteps] at hskip
    rw [hlsteps] at hann
    rw [hannounced, hlater, seqSteps_seqOf_add _ (show b ≤ k by omega) hk,
      seqSteps_seqOf_add _ (show b ≤ l + e by omega) he]
    exact ⟨by omega, by omega, by omega, by omega, hmem⟩
  · intro message hmessage hlt
    dsimp only at hlt ⊢
    rw [hmessages]
    exact htracks.waiting message hmessage (by omega)
  · intro x hx
    have := htracks.popped x hx
    exact ⟨this.1, this.2.1, Nat.le_add_right_of_le this.2.2⟩
  · intro r hr
    dsimp only at hr ⊢
    rw [List.mem_append, List.mem_singleton] at hr
    rcases hr with hold | rfl
    · obtain ⟨hle, hout⟩ := htracks.skipped r hold
      exact ⟨Nat.le_add_right_of_le hle, hout⟩
    · refine ⟨le_rfl, fun x hx hin => ?_⟩
      have := (htracks.popped x hx).2.2
      omega

end InputHistory.Tracks

/-- Along every run whose heartbeats skip no message that is held and announce at most half a
turn, the stream has the representation invariant. -/
theorem inputRepresentation_of_run {h : InputHistory α}
    (hrun : Transition.Reaches (· = InputHistory.start) InputHistory.step InputHistory.Admitted h) :
    InputRepresents h := by
  refine InputHistory.Tracks.represents (hrun.invariant ?_ ?_)
  · rintro _ rfl
    exact InputHistory.Tracks.start
  · intro h call htracks hadmitted
    cases call with
    | pushMessage seqNum message => exact htracks.pushMessage seqNum message
    | emplaceMessage seqNum message => exact htracks.pushMessage seqNum message
    | popMessage => exact htracks.popMessage
    | updateFromHeartbeat firstUnacked lastUnacked => exact htracks.updateFromHeartbeat hadmitted
    | fillAcknack => exact htracks

/-- A message ahead of its turn, a heartbeat that skips what is missing, and a pop. -/
theorem inputRepresentation_of_run_heartbeat :
    ∃ h : InputHistory UInt8, h.popped = [(65538, 65538, 7)] ∧ InputRepresents h := by
  obtain ⟨h, hh⟩ : ∃ h : InputHistory UInt8,
      h = InputHistory.start.step (.pushMessage (seqOf 2) 7) := ⟨_, rfl⟩
  have hpush : Transition.Reaches (· = InputHistory.start) InputHistory.step
      InputHistory.Admitted h := hh ▸ .next (.start rfl) trivial
  have hkeeps : h.Admitted (.updateFromHeartbeat (seqOf 2) (seqOf 2)) := by
    subst hh
    refine ⟨fun key hkey => ?_, by decide⟩
    by_cases heq : key = seqOf 2
    · subst heq
      decide
    · exact absurd (Function.update_of_ne heq _ _) hkey
  have hpop : (h.step (.updateFromHeartbeat (seqOf 2) (seqOf 2))).Admitted .popMessage := trivial
  refine ⟨_, ?_, inputRepresentation_of_run ((hpush.next hkeeps).next hpop)⟩
  subst hh
  decide

/-- A heartbeat skips a message that is held, and leaves it in the map. -/
theorem heartbeat_leaves_message :
    ¬ ∀ h : InputHistory UInt8,
      Transition.Reaches (· = InputHistory.start) InputHistory.step (fun _ _ => True) h →
        InputRepresents h := by
  intro hall
  have hrun : Transition.Reaches (· = InputHistory.start) InputHistory.step (fun _ _ => True)
      ((InputHistory.start.step (.pushMessage (seqOf 1) (7 : UInt8))).step
        (.updateFromHeartbeat (seqOf 5) (seqOf 5))) :=
    .next (.next (.start rfl) trivial) trivial
  exact absurd ((hall _ hrun).window (seqOf 1) (by decide)) (by decide)

end ReliableInputStream

end XrceDds
